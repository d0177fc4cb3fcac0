import IvrmDashboard.Foundations.Sql.Result
import IvrmDashboard.Notifications.Settings

/-!
# Signals and the outbox

The two tables of the monitoring notifications: the current state of every signal, and the outbox
of what is to be delivered. Every write tests the constraints of the rows it touches. A row enters
the outbox under a key made of its signal, its transition and its time; a second row under the
same key is dropped without an error (`insertNotice`).
-/

namespace IvrmDashboard.Notifications

open Sql Operations

/-! ## Rows -/

/-- What a signal or a notification is about. -/
structure Identity where
  sourceType : Source
  hostId : Option Uuid
  serverId : String
  entityType : Source
  entityKey : String
  entityName : String
  deriving DecidableEq

/-- A row of `notification_signal_state`. -/
structure Signal where
  signalKey : String
  identity : Identity
  signalType : String
  severity : Level
  active : Bool
  openedAt : Timestamptz
  lastSeenAt : Timestamptz
  recoveredAt : Option Timestamptz
  reason : String
  detailHref : String
  deriving DecidableEq

/-- A row of `notification_outbox`. -/
structure OutboxRow where
  id : ℕ
  dedupeKey : String
  signalKey : Option String
  identity : Identity
  transition : Transition
  severity : Severity
  title : String
  message : String
  detailHref : String
  occurredAt : Timestamptz
  status : DeliveryStatus
  suppressionReason : Option String
  attempts : ℕ
  nextAttemptAt : ℤ
  claimToken : Option Uuid
  claimedAt : Option ℤ
  sentAt : Option ℤ
  externalDeliveryId : Option String
  lastHttpStatus : Option ℤ
  lastErrorCode : Option String
  deriving DecidableEq

/-- What a suppression of the row is matched against. -/
def OutboxRow.subject (r : OutboxRow) : Subject :=
  ⟨r.identity.hostId, r.identity.entityType, r.identity.entityKey, r.identity.entityName,
    r.signalKey.getD r.dedupeKey⟩

/-- What a suppression of the signal is matched against. -/
def Signal.subject (s : Signal) : Subject :=
  ⟨s.identity.hostId, s.identity.entityType, s.identity.entityKey, s.identity.entityName,
    s.signalKey⟩

/-- The characters of a link. -/
def hrefChar (c : Char) : Bool :=
  Text.upperAlpha c || Text.lowerAlpha c || Text.digit c || c ∈ "_./?=&%:+#-".toList

/-- `s ~ '^/[A-Za-z0-9_./?=&%:+#-]*$'`, of at most 1001 characters -/
def hrefOk (s : String) : Bool :=
  s.length ≤ 1001 && s.toList.head? = some '/' && s.toList.all hrefChar

/-- `s ~ '^/(?!/)[A-Za-z0-9_./?=&%:+#-]*$'`, of at most 1001 characters -/
def relativeHrefOk (s : String) : Bool := hrefOk s && s.toList[1]? ≠ some '/'

/-- `notification_signal_reliability_shape_check` and its twin on the outbox -/
def Identity.shapeOk (i : Identity) : Bool :=
  (!i.sourceType.ofHost && i.entityType = i.sourceType && i.hostId.isNone && i.serverId = "ivrm") ||
    (i.sourceType.ofHost && i.entityType.ofHost && i.hostId.isSome)

/-- The constraints of a signal. -/
def Signal.checks (s : Signal) : List (String × Bool) :=
  [("notification_signal_key_check", Text.lengthBetween 1 500 s.signalKey),
    ("notification_signal_entity_key_check", Text.lengthBetween 1 400 s.identity.entityKey),
    ("notification_signal_entity_name_check", Text.lengthBetween 1 256 s.identity.entityName),
    ("notification_signal_type_check", Text.lengthBetween 1 80 s.signalType),
    ("notification_signal_reason_check", Text.lengthBetween 1 1800 s.reason),
    ("notification_signal_href_check", hrefOk s.detailHref),
    ("notification_signal_recovery_check",
      if s.active then s.recoveredAt.isNone else s.recoveredAt.any (s.openedAt ≤ ·)),
    ("notification_signal_reliability_shape_check", s.identity.shapeOk)]

/-- The constraints of an outbox row. -/
def OutboxRow.checks (r : OutboxRow) : List (String × Bool) :=
  [("notification_outbox_dedupe_check", Text.lengthBetween 1 700 r.dedupeKey),
    ("notification_outbox_signal_key_check", r.signalKey.all (·.length ≤ 500)),
    ("notification_outbox_entity_key_check", Text.lengthBetween 1 400 r.identity.entityKey),
    ("notification_outbox_entity_name_check", Text.lengthBetween 1 256 r.identity.entityName),
    ("notification_outbox_title_check", Text.lengthBetween 1 160 r.title),
    ("notification_outbox_message_check", Text.lengthBetween 1 1800 r.message),
    ("notification_outbox_href_check", hrefOk r.detailHref),
    ("notification_outbox_suppression_check", r.suppressionReason.all (·.length ≤ 256)),
    ("notification_outbox_attempts_check", r.attempts ≤ 20),
    ("notification_outbox_claim_check",
      r.status ≠ .sending || (r.claimToken.isSome && r.claimedAt.isSome)),
    ("notification_outbox_sent_check", r.sentAt.isNone || r.status = .sent),
    ("notification_outbox_http_check", r.lastHttpStatus.all fun n => 100 ≤ n && n ≤ 599),
    ("notification_outbox_external_id_check", r.externalDeliveryId.all (·.length ≤ 128)),
    ("notification_outbox_error_code_check", r.lastErrorCode.all (·.length ≤ 128)),
    ("notification_outbox_reliability_shape_check", r.identity.shapeOk)]

/-- The rows that pass their constraints. -/
def OutboxRow.Checked (r : OutboxRow) : Prop := ∀ check ∈ r.checks, check.2 = true

/-! ## The tables -/

/-- The signals and the outbox, with the next value of its identity column. -/
structure Board where
  signals : List Signal
  outbox : List OutboxRow
  nextId : ℕ

/-- What a call finds: the time, and the tables it reads. -/
structure Env where
  now : ℤ
  settings : Settings

/-- The time as a timestamp. -/
def Env.at (e : Env) : Timestamptz := .ofInstant e.now

namespace Board

/-- Nothing has happened yet. -/
def empty : Board := ⟨[], [], 1⟩

/-- `select * from notification_signal_state where signal_key = k` -/
def signal? (b : Board) (k : String) : Option Signal := b.signals.find? (·.signalKey = k)

/-- The constraint that a host exists. -/
def hostOk (e : Env) (i : Identity) : Bool := i.hostId.all e.settings.isHost

/-- A new signal. -/
def insertSignal (e : Env) (s : Signal) (b : Board) : Except DbError Board := do
  checkAll s.checks
  raiseIf (!hostOk e s.identity) (.foreignKeyViolation "notification_signal_state_host_id_fkey")
  return { b with signals := b.signals ++ [s] }

/-- A changed signal. -/
def updateSignal (e : Env) (s : Signal) (b : Board) : Except DbError Board := do
  checkAll s.checks
  raiseIf (!hostOk e s.identity) (.foreignKeyViolation "notification_signal_state_host_id_fkey")
  return { b with signals := updateWhere (·.signalKey = s.signalKey) (fun _ => s) b.signals }

/-- `update notification_outbox set … where …` -/
def updateOutbox (p : OutboxRow → Bool) (f : OutboxRow → OutboxRow) (b : Board) :
    Except DbError Board := do
  checkAll ((b.outbox.filter p).flatMap fun r => (f r).checks)
  return { b with outbox := updateWhere p f b.outbox }

end Board

/-- Taken out of the queue for a reason. -/
def OutboxRow.suppress (reason : String) (r : OutboxRow) : OutboxRow :=
  { r with
    status := .suppressed
    suppressionReason := some reason
    claimToken := none
    claimedAt := none }

/-! ## Notifications -/

/-- A notification to be put into the outbox; the key may be missing. -/
structure Notice where
  dedupeKey : Option String
  signalKey : Option String
  identity : Identity
  transition : Transition
  severity : Severity
  title : String
  message : String
  detailHref : String
  occurredAt : Timestamptz
  deriving DecidableEq

/-- The row of a notification. -/
def Notice.row (n : Notice) (key : String) (id : ℕ) (now : ℤ) (reason : Option String) :
    OutboxRow where
  id := id
  dedupeKey := key
  signalKey := n.signalKey
  identity := n.identity
  transition := n.transition
  severity := n.severity
  title := n.title
  message := n.message
  detailHref := n.detailHref
  occurredAt := n.occurredAt
  status := if reason.isNone then .pending else .suppressed
  suppressionReason := reason
  attempts := 0
  nextAttemptAt := now
  claimToken := none
  claimedAt := none
  sentAt := none
  externalDeliveryId := none
  lastHttpStatus := none
  lastErrorCode := none

/-- What a suppression of the notification is matched against. -/
def Notice.subject (n : Notice) (key : String) : Subject :=
  ⟨n.identity.hostId, n.identity.entityType, n.identity.entityKey, n.identity.entityName,
    n.signalKey.getD key⟩

/-- The row of a notification put into the outbox at `e`. -/
def Notice.newRow (n : Notice) (e : Env) (key : String) (id : ℕ) : OutboxRow :=
  n.row key id e.now (e.settings.suppressionReason e.now (n.subject key) n.occurredAt)

/-- The insertion of a notification: under a key that is taken nothing is inserted, and an identity
value is spent all the same. -/
def insertNotice (e : Env) (n : Notice) (key : String) (b : Board) : Except DbError (ℕ × Board) :=
  let row := n.newRow e key b.nextId
  do
    checkAll row.checks
    match b.outbox.find? (·.dedupeKey = key) with
    | some old => return (old.id, { b with nextId := b.nextId + 1 })
    | none =>
      raiseIf (!Board.hostOk e n.identity) (.foreignKeyViolation "notification_outbox_host_id_fkey")
      return (row.id, { b with outbox := b.outbox ++ [row], nextId := b.nextId + 1 })

/-- The limits every notification has to keep. -/
def Notice.textOk (n : Notice) : Bool :=
  Text.lengthBetween 1 400 n.identity.entityKey && Text.lengthBetween 1 256 n.identity.entityName &&
    Text.lengthBetween 1 160 n.title && Text.lengthBetween 1 1800 n.message

/-- The part the three ways into the outbox share: the key, and the test of the caller. -/
def enqueue (ok : Notice → Bool) (message : String) (e : Env) (n : Notice) (b : Board) :
    Except DbError (ℕ × Board) := do
  let key ← orRaise (n.dedupeKey.filter (Text.lengthBetween 1 700)) (.raised message "22023")
  raiseIf (!ok n) (.raised message "22023")
  insertNotice e n key b

/-- `enqueue_notification_v1` -/
def enqueueNotification : Env → Notice → Board → Except DbError (ℕ × Board) :=
  enqueue (fun n => n.textOk && n.identity.sourceType.ofHost && n.identity.hostId.isSome &&
      Text.lengthBetween 1 128 n.identity.serverId && n.identity.entityType.ofHost &&
      hrefOk n.detailHref)
    "notification_payload_invalid"

/-- The services of the burn rate alerts. -/
def burnServices : List String := ["overall", "host", "container", "backup"]

/-- `enqueue_reliability_notification_v1` -/
def enqueueReliabilityNotification : Env → Notice → Board → Except DbError (ℕ × Board) :=
  enqueue (fun n => n.textOk && n.signalKey.any (Text.lengthBetween 1 500) &&
      n.identity.entityKey ∈ burnServices && n.transition ≠ .event && n.severity ≠ .info &&
      relativeHrefOk n.detailHref)
    "reliability_notification_payload_invalid"

/-- `enqueue_cloud_notification_v1` -/
def enqueueCloudNotification : Env → Notice → Board → Except DbError (ℕ × Board) :=
  enqueue (fun n => n.textOk && n.identity.sourceType = .cloud && n.identity.hostId.isNone &&
      n.identity.serverId = "ivrm" && n.identity.entityType = .cloud && n.detailHref = "/cloud")
    "notification_payload_invalid"

end IvrmDashboard.Notifications
