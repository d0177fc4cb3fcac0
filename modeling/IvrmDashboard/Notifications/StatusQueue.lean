import IvrmDashboard.Notifications.Outbox

/-!
# The queue of status notifications

Publishing an incident, a maintenance or an announcement creates one event under its key, and for
every channel that exists at that moment one delivery. The deliveries are claimed by provider,
asked for and completed like the rows of the outbox; what is suppressed here stays suppressed.
The later events of a source wait for the undelivered earlier ones on the same channel.
-/

namespace IvrmDashboard.Notifications

open Sql Operations

/-! ## Events -/

/-- `event_type` -/
inductive StatusEventType
  | incidentPublished
  | incidentUpdatePublished
  | incidentResolved
  | maintenancePublished
  | maintenanceCancelled
  | announcementPublished
  deriving DecidableEq

/-- `source_type` of an event -/
inductive StatusSource
  | incident
  | maintenance
  | announcement
  deriving DecidableEq

namespace StatusEventType

def all : List StatusEventType :=
  [incidentPublished, incidentUpdatePublished, incidentResolved, maintenancePublished,
    maintenanceCancelled, announcementPublished]

def text : StatusEventType → String
  | incidentPublished => "incident_published"
  | incidentUpdatePublished => "incident_update_published"
  | incidentResolved => "incident_resolved"
  | maintenancePublished => "maintenance_published"
  | maintenanceCancelled => "maintenance_cancelled"
  | announcementPublished => "announcement_published"

/-- The type a text names. -/
def ofText? (s : String) : Option StatusEventType := all.find? fun t => t.text == s

end StatusEventType

namespace StatusSource

def all : List StatusSource := [incident, maintenance, announcement]

def text : StatusSource → String
  | incident => "incident"
  | maintenance => "maintenance"
  | announcement => "announcement"

/-- The source a text names. -/
def ofText? (s : String) : Option StatusSource := all.find? fun t => t.text == s

def idPrefix : StatusSource → String
  | incident => "INC-"
  | maintenance => "MNT-"
  | announcement => "ANN-"

/-- `source_public_id ~ '^INC-[A-F0-9]{12}$'` and its like -/
def publicIdOk (t : StatusSource) (s : String) : Bool :=
  s.length = 16 && t.idPrefix.toList.isPrefixOf s.toList &&
    (s.toList.drop 4).all fun c => Text.digit c || ('A' ≤ c && c ≤ 'F')

end StatusSource

/-- `severity` of an event -/
def statusSeverity? (s : String) : Option Severity :=
  if s = "info" then some .info
  else if s = "warning" then some .warning
  else if s = "critical" then some .critical
  else none

/-- What an event says. -/
structure StatusContent where
  eventType : StatusEventType
  sourceType : StatusSource
  sourcePublicId : String
  title : String
  message : String
  detailHref : String
  severity : Severity
  occurredAt : Timestamptz
  deriving DecidableEq

/-- A row of `notification_events`. -/
structure StatusEvent where
  id : ℕ
  eventKey : String
  content : StatusContent
  deriving DecidableEq

/-- The source of an event. -/
def StatusEvent.source (v : StatusEvent) : StatusSource × String :=
  (v.content.sourceType, v.content.sourcePublicId)

/-- A row of `notification_deliveries`. -/
structure StatusDelivery where
  id : ℕ
  eventId : ℕ
  channelId : ℕ
  providerType : Provider
  status : DeliveryStatus
  attempts : ℕ
  nextAttemptAt : Timestamptz
  claimToken : Option Uuid
  claimedAt : Option ℤ
  sentAt : Option ℤ
  lastHttpStatus : Option ℤ
  externalDeliveryId : Option String
  lastErrorCode : Option String
  suppressionReason : Option String
  deriving DecidableEq

/-- The constraints of a delivery. -/
def StatusDelivery.checks (d : StatusDelivery) : List (String × Bool) :=
  [("notification_deliveries_attempts_check", d.attempts ≤ 20),
    ("notification_deliveries_claim_check",
      if d.status = .sending then d.claimToken.isSome && d.claimedAt.isSome
      else d.claimToken.isNone && d.claimedAt.isNone),
    ("notification_deliveries_sent_check",
      if d.status = .sent then d.sentAt.isSome else d.sentAt.isNone),
    ("notification_deliveries_http_check", d.lastHttpStatus.all fun n => 100 ≤ n && n ≤ 599),
    ("notification_deliveries_external_id_check", d.externalDeliveryId.all (·.length ≤ 128)),
    ("notification_deliveries_error_code_check", d.lastErrorCode.all (·.length ≤ 128)),
    ("notification_deliveries_suppression_check",
      if d.status = .suppressed then d.suppressionReason.any (Text.lengthBetween 1 256)
      else d.suppressionReason.isNone)]

/-- The delivery passes its constraints. -/
def StatusDelivery.Checked (d : StatusDelivery) : Prop := ∀ check ∈ d.checks, check.2 = true

/-- The two tables, with the next values of their identity columns. -/
structure StatusQueue where
  events : List StatusEvent
  deliveries : List StatusDelivery
  nextEventId : ℕ
  nextDeliveryId : ℕ

namespace StatusQueue

/-- Nothing has been published. -/
def empty : StatusQueue := ⟨[], [], 1, 1⟩

/-- The event of a delivery. -/
def event? (q : StatusQueue) (d : StatusDelivery) : Option StatusEvent :=
  q.events.find? (·.id = d.eventId)

/-- `update notification_deliveries set … where …` -/
def update (p : StatusDelivery → Bool) (f : StatusDelivery → StatusDelivery) (q : StatusQueue) :
    Except DbError StatusQueue := do
  checkAll ((q.deliveries.filter p).flatMap fun d => (f d).checks)
  return { q with deliveries := updateWhere p f q.deliveries }

end StatusQueue

/-- `notification_status_suppression_reason_v1` -/
def Settings.statusSuppressionReason (s : Settings) (t : Timestamptz) : Option String :=
  if s.suppressions.any fun p => p.covers t && p.scopeType = .global && p.scopeKey = "*" then
    some "global_suppression"
  else none

/-! ## Creating an event -/

/-- The arguments of `create_status_notification_event_v1`. -/
structure StatusEventParams where
  eventKey : Option String
  eventType : Option String
  sourceType : Option String
  sourcePublicId : Option String
  title : Option String
  message : Option String
  detailHref : Option String
  severity : Option String
  occurredAt : Option Timestamptz
  deriving DecidableEq

/-- `[A-Za-z0-9:_-]` -/
def eventKeyChar (c : Char) : Bool :=
  Text.upperAlpha c || Text.lowerAlpha c || Text.digit c || c ∈ ":_-".toList

/-- The key and the content, if none is missing and all are in their limits. -/
def StatusEventParams.content? (p : StatusEventParams) : Option (String × StatusContent) := do
  let eventKey ← p.eventKey.filter fun s =>
    Text.lengthBetween 1 256 s && Text.matchesPlus eventKeyChar s
  let eventType ← p.eventType.bind StatusEventType.ofText?
  let sourceType ← p.sourceType.bind StatusSource.ofText?
  let sourcePublicId ← p.sourcePublicId.filter sourceType.publicIdOk
  let title ← p.title.filter fun s => Text.lengthBetween 1 160 s && s = Text.btrim s
  let message ← p.message.filter fun s => Text.lengthBetween 1 4000 s && s = Text.btrim s
  let detailHref ← p.detailHref.filter relativeHrefOk
  let severity ← p.severity.bind statusSeverity?
  let occurredAt ← p.occurredAt
  some (eventKey, ⟨eventType, sourceType, sourcePublicId, title, message, detailHref, severity,
    occurredAt⟩)

/-- Why a delivery is suppressed from the start. -/
def Channel.initialSuppression (c : Channel) (global : Option String) : Option String :=
  if !c.enabled then some "channel_disabled"
  else if !c.configured then some "channel_unconfigured"
  else global

/-- The delivery of an event to a channel. -/
def Channel.delivery (c : Channel) (e : Env) (eventId : ℕ) (occurredAt : Timestamptz) (id : ℕ) :
    StatusDelivery :=
  let reason := c.initialSuppression (e.settings.statusSuppressionReason occurredAt)
  { id
    eventId
    channelId := c.id
    providerType := c.channelType
    status := if reason.isNone then .pending else .suppressed
    attempts := 0
    nextAttemptAt := max e.at occurredAt
    claimToken := none
    claimedAt := none
    sentAt := none
    lastHttpStatus := none
    externalDeliveryId := none
    lastErrorCode := none
    suppressionReason := reason }

/-- The deliveries of an event, one for each channel, with consecutive ids. -/
def fanOut (e : Env) (eventId : ℕ) (occurredAt : Timestamptz) (nextId : ℕ) :
    List Channel → List StatusDelivery
  | [] => []
  | c :: channels =>
    c.delivery e eventId occurredAt nextId :: fanOut e eventId occurredAt (nextId + 1) channels

/-- A key that is taken belongs to the same content or is a conflict. -/
def resolveEvent (content : StatusContent) (v : StatusEvent) (q : StatusQueue) :
    Except DbError (ℕ × StatusQueue) := do
  raiseIf (v.content ≠ content) (.raised "status_notification_event_key_conflict" "23505")
  return (v.id, { q with nextEventId := q.nextEventId + 1 })

/-- `create_status_notification_event_v1` -/
def createStatusNotificationEvent (e : Env) (p : StatusEventParams) (q : StatusQueue) :
    Except DbError (ℕ × StatusQueue) := do
  let (key, content) ← orRaise p.content? (.raised "status_notification_event_invalid" "22023")
  match q.events.find? (·.eventKey = key) with
  | some v => resolveEvent content v q
  | none =>
    let deliveries := fanOut e q.nextEventId content.occurredAt q.nextDeliveryId e.settings.channels
    checkAll (deliveries.flatMap StatusDelivery.checks)
    return (q.nextEventId,
      { events := q.events ++ [⟨q.nextEventId, key, content⟩]
        deliveries := q.deliveries ++ deliveries
        nextEventId := q.nextEventId + 1
        nextDeliveryId := q.nextDeliveryId + deliveries.length })

/-! ## Claiming -/

namespace StatusDelivery

/-- The claim of the delivery is older than five minutes. -/
def timedOut (provider : Provider) (now : ℤ) (d : StatusDelivery) : Bool :=
  d.providerType = provider && d.status = .sending && d.claimedAt.any (· < now - claimTimeout)

/-- Given back after its claim has timed out. -/
def expire (now : ℤ) (d : StatusDelivery) : StatusDelivery :=
  { d with
    status := .retry
    claimToken := none
    claimedAt := none
    nextAttemptAt := .ofInstant now
    lastErrorCode := some "claim_timeout" }

/-- Taken out of the queue for a reason. -/
def suppress (reason : String) (d : StatusDelivery) : StatusDelivery :=
  { d with
    status := .suppressed
    suppressionReason := some reason
    claimToken := none
    claimedAt := none }

/-- Taken by a dispatcher. -/
def claim (token : Uuid) (now : ℤ) (d : StatusDelivery) : StatusDelivery :=
  { d with
    status := .sending
    attempts := d.attempts + 1
    claimToken := some token
    claimedAt := some now }

/-- The channel of the delivery, if it still is of its provider. -/
def channel? (s : Settings) (d : StatusDelivery) : Option Channel :=
  s.channels.find? fun c => c.id = d.channelId && c.channelType = d.providerType

/-- What suppresses the delivery at the moment. -/
def blockReason (e : Env) (d : StatusDelivery) : Option String :=
  (d.channel? e.settings).bind fun c =>
    if !c.enabled then some "channel_disabled"
    else if !c.configured then some "channel_unconfigured"
    else if (e.settings.statusSuppressionReason e.at).isSome then some "global_suppression"
    else none

end StatusDelivery

namespace StatusQueue

variable (q : StatusQueue)

/-- `earlier` comes before `d` on the channel and the source of `d`. -/
def precedes (earlier d : StatusDelivery) : Bool :=
  match q.event? earlier, q.event? d with
  | some v, some w =>
    earlier.channelId = d.channelId && earlier.providerType = d.providerType &&
      v.source = w.source &&
      (v.content.occurredAt < w.content.occurredAt ||
        (v.content.occurredAt = w.content.occurredAt && earlier.id < d.id))
  | _, _ => false

/-- The delivery may be taken. -/
def claimable (e : Env) (provider : Provider) (d : StatusDelivery) : Bool :=
  d.providerType = provider && d.status.waiting && d.nextAttemptAt ≤ e.at &&
    (d.channel? e.settings).any Channel.ready && (q.event? d).isSome &&
    q.deliveries.all fun earlier => !(earlier.status.undelivered && q.precedes earlier d)

/-- `case severity when 'critical' then 1 when 'warning' then 2 else 3 end` -/
def urgency (d : StatusDelivery) : ℕ :=
  match q.event? d with
  | none => 3
  | some v =>
    match v.content.severity with
    | .critical => 1
    | .warning => 2
    | _ => 3

/-- `(occurred_at, id)` of `d` is at most that of `d'`. -/
def notAfter (d d' : StatusDelivery) : Bool :=
  match q.event? d, q.event? d' with
  | some v, some w =>
    v.content.occurredAt < w.content.occurredAt ||
      (v.content.occurredAt = w.content.occurredAt && d.id ≤ d'.id)
  | _, _ => true

/-- The order in which deliveries are taken. -/
def claimedBefore (d d' : StatusDelivery) : Bool :=
  q.urgency d < q.urgency d' || (q.urgency d = q.urgency d' && q.notAfter d d')

/-- The deliveries a claim takes. -/
def picked (e : Env) (provider : Provider) (limit : ℕ) : List StatusDelivery :=
  (orderBy q.claimedBefore (q.deliveries.filter (q.claimable e provider))).take limit

end StatusQueue

section

variable (e : Env) (provider : Provider) (q : StatusQueue)

/-- Claims that have timed out are given back. -/
def expireDeliveries : Except DbError StatusQueue :=
  q.update (StatusDelivery.timedOut provider e.now) (StatusDelivery.expire e.now)

/-- Deliveries whose channel is off, or while everything is suppressed. -/
def suppressDeliveries : Except DbError StatusQueue :=
  q.update
    (fun d => d.providerType = provider && d.status.waiting && (d.blockReason e).isSome)
    fun d => d.suppress ((d.blockReason e).getD "")

/-- The deliveries are taken. -/
def takeDeliveries (token : Uuid) (picked : List StatusDelivery) : Except DbError StatusQueue :=
  q.update (fun d => d.id ∈ picked.map (·.id)) (StatusDelivery.claim token e.now)

end

/-- The provider a text names. -/
def Provider.ofText? (s : String) : Option Provider :=
  if s = "discord" then some .discord else if s = "slack" then some .slack else none

/-- `claim_notification_deliveries_v1` -/
def claimNotificationDeliveries (e : Env) (provider : Option String) (token : Option Uuid)
    (limit : Option ℤ) (q : StatusQueue) : Except DbError (List StatusDelivery × StatusQueue) := do
  let provider ← orRaise (provider.bind Provider.ofText?)
    (.raised "notification_delivery_claim_invalid" "22023")
  let token ← orRaise token (.raised "notification_delivery_claim_invalid" "22023")
  let limit ← orRaise (limit.filter fun n => 1 ≤ n && n ≤ 20)
    (.raised "notification_delivery_claim_invalid" "22023")
  let q ← expireDeliveries e provider q
  let q ← suppressDeliveries e provider q
  let picked := q.picked e provider limit.toNat
  let q ← takeDeliveries e q token picked
  return (orderBy q.notAfter (q.deliveries.filter (·.id ∈ picked.map (·.id))), q)

/-! ## The deliveries of a dispatcher -/

/-- The delivery is in the hands of the dispatcher with the token. -/
def StatusDelivery.heldBy (id : ℤ) (token : Uuid) (d : StatusDelivery) : Bool :=
  (d.id : ℤ) = id && d.status = .sending && d.claimToken = some token

/-- `select … where id = p_id and status = 'sending' and claim_token = p_claim_token` -/
def StatusQueue.held? (q : StatusQueue) (id : ℤ) (token : Uuid) : Option StatusDelivery :=
  q.deliveries.find? (StatusDelivery.heldBy id token)

/-- The columns of a published announcement that the gate reads. -/
structure AnnouncementState where
  publicId : String
  published : Bool
  publishAt : Option Timestamptz
  expiresAt : Option Timestamptz
  deriving DecidableEq

/-- What the gate reads of the published objects: the incidents with whether they are resolved, the
maintenance notices with whether they are cancelled, and the announcements. -/
structure Publications where
  incidents : List (String × Bool)
  maintenances : List (String × Bool)
  announcements : List AnnouncementState

/-- The look-up under a public id. -/
def publication? (rows : List (String × Bool)) (publicId : String) : Option Bool :=
  (rows.find? (·.1 = publicId)).map (·.2)

/-- Why an event is no longer worth sending. -/
def Publications.block (s : Publications) (now : Timestamptz) (c : StatusContent) :
    Option String :=
  match c.sourceType, c.eventType with
  | .incident, .incidentPublished | .incident, .incidentUpdatePublished =>
    match publication? s.incidents c.sourcePublicId with
    | none => some "incident_missing_during_dispatch"
    | some resolved => if resolved then some "incident_resolved_before_delivery" else none
  | .maintenance, .maintenancePublished =>
    match publication? s.maintenances c.sourcePublicId with
    | none => some "maintenance_missing_during_dispatch"
    | some cancelled => if cancelled then some "maintenance_cancelled_before_delivery" else none
  | .announcement, .announcementPublished =>
    match s.announcements.find? (·.publicId = c.sourcePublicId) with
    | none => some "announcement_missing_during_dispatch"
    | some a =>
      if !a.published then some "announcement_archived_before_delivery"
      else if a.publishAt.any (now < ·) then some "announcement_not_due"
      else if a.expiresAt.any (· ≤ now) then some "announcement_expired_before_delivery"
      else none
  | _, _ => none

/-- `notification_event_delivery_block_reason_v1` -/
def notificationEventDeliveryBlockReason (e : Env) (s : Publications) (id : Option ℤ)
    (token : Option Uuid) (q : StatusQueue) : Option String :=
  match id.filter (1 ≤ ·), token with
  | some id, some token =>
    match q.held? id token with
    | none => some "claim_mismatch"
    | some d =>
      match q.event? d with
      | none => some "event_missing"
      | some v =>
        match d.channel? e.settings with
        | none => some "channel_mismatch"
        | some c =>
          if !c.enabled then some "channel_disabled_during_dispatch"
          else if !c.configured then some "channel_unconfigured_during_dispatch"
          else (e.settings.statusSuppressionReason e.at).or (s.block e.at v.content)
  | _, _ => some "claim_mismatch"

/-- `suppress_notification_event_delivery_v1` -/
def suppressNotificationEventDelivery (id : Option ℤ) (token : Option Uuid)
    (reason : Option String) (q : StatusQueue) : Except DbError (DeliveryAnswer × StatusQueue) := do
  let id ← orRaise (id.filter (1 ≤ ·)) (.raised "notification_event_suppress_invalid" "22023")
  let token ← orRaise token (.raised "notification_event_suppress_invalid" "22023")
  let reason ← orRaise (reason.filter (Text.lengthBetween 1 256))
    (.raised "notification_event_suppress_invalid" "22023")
  match q.held? id token with
  | none => return (.claimMismatch, q)
  | some _ =>
    let q ← q.update (StatusDelivery.heldBy id token) (StatusDelivery.suppress reason)
    return (.moved .suppressed, q)

namespace StatusDelivery

/-- Delivered. -/
def deliver (p : DeliveryReport) (now : ℤ) (d : StatusDelivery) : StatusDelivery :=
  { d with
    status := .sent
    sentAt := some now
    externalDeliveryId := p.externalDeliveryId
    lastHttpStatus := p.httpStatus
    lastErrorCode := none
    suppressionReason := none
    claimToken := none
    claimedAt := none }

/-- The status after a failed attempt. -/
def failedStatus (d : StatusDelivery) : DeliveryStatus := if 5 ≤ d.attempts then .failed else .retry

/-- Not delivered at this attempt. -/
def fail (p : DeliveryReport) (now : ℤ) (d : StatusDelivery) : StatusDelivery :=
  { d with
    status := d.failedStatus
    nextAttemptAt :=
      if 5 ≤ d.attempts then d.nextAttemptAt
      else .ofInstant (now + backoffSeconds d.attempts * second)
    externalDeliveryId := none
    lastHttpStatus := p.httpStatus
    lastErrorCode := some (p.errorCode.getD "delivery_failed")
    suppressionReason := none
    claimToken := none
    claimedAt := none }

end StatusDelivery

/-- `complete_notification_event_delivery_v1` -/
def completeNotificationEventDelivery (e : Env) (id : Option ℤ) (token : Option Uuid)
    (p : DeliveryReport) (q : StatusQueue) : Except DbError (DeliveryAnswer × StatusQueue) := do
  let id ← orRaise (id.filter (1 ≤ ·)) (.raised "notification_event_complete_invalid" "22023")
  let token ← orRaise token (.raised "notification_event_complete_invalid" "22023")
  let success ← orRaise p.success (.raised "notification_event_complete_invalid" "22023")
  raiseIf (!p.limitsOk) (.raised "notification_event_complete_invalid" "22023")
  match q.held? id token with
  | none => return (.claimMismatch, q)
  | some d =>
    if success then
      let q ← q.update (fun d => (d.id : ℤ) = id) (StatusDelivery.deliver p e.now)
      return (.moved .sent, q)
    else
      let q ← q.update (fun d => (d.id : ℤ) = id) (StatusDelivery.fail p e.now)
      return (.moved d.failedStatus, q)

/-- What switching the Discord channel off does to the queue. -/
def suppressChannelDeliveries (reason : String) (q : StatusQueue) : Except DbError StatusQueue :=
  q.update
    (fun d => d.channelId = 1 && d.providerType = .discord && d.status.undelivered)
    (StatusDelivery.suppress reason)

end IvrmDashboard.Notifications
