import Mathlib.Algebra.Group.Int.Defs
import IvrmDashboard.Notifications.Signals

/-!
# Claiming and completing the rows of the outbox

A dispatcher claims a batch of rows under a fresh token, asks for every row whether it may still
go out, and reports how the delivery ended. A claim first puts the queue in order: claims older
than five minutes are given back, what has been suppressed or has become pointless meanwhile is
taken out, and for every active signal the latest announcement that was suppressed is put back
once nothing suppresses it any longer. Then it takes the rows that are due and have no earlier
undelivered row of their signal.
-/

namespace IvrmDashboard.Notifications

open Sql Operations

/-- `interval '5 minutes'` -/
def claimTimeout : ℤ := 300 * second

namespace OutboxRow

/-- The order of the rows of a signal. -/
def precedes (r r' : OutboxRow) : Bool :=
  r.occurredAt < r'.occurredAt || (r.occurredAt = r'.occurredAt && r.id < r'.id)

/-- The claim of the row is older than five minutes. -/
def timedOut (now : ℤ) (r : OutboxRow) : Bool :=
  r.status = .sending && r.claimedAt.any (· < now - claimTimeout)

/-- Given back after its claim has timed out. -/
def expire (now : ℤ) (r : OutboxRow) : OutboxRow :=
  { r with
    status := .retry
    claimToken := none
    claimedAt := none
    nextAttemptAt := now
    lastErrorCode := some "claim_timeout" }

/-- What suppresses the row at the moment. -/
def blockReason (e : Env) (r : OutboxRow) : Option String :=
  e.settings.suppressionReason e.now r.subject e.at

/-- Put back into the queue. -/
def release (now : ℤ) (r : OutboxRow) : OutboxRow :=
  { r with
    status := .pending
    suppressionReason := none
    nextAttemptAt := now
    lastErrorCode := none }

/-- Taken by a dispatcher. -/
def claim (token : Uuid) (now : ℤ) (r : OutboxRow) : OutboxRow :=
  { r with
    status := .sending
    attempts := r.attempts + 1
    claimToken := some token
    claimedAt := some now }

/-- `case severity when 'critical' then 1 when 'warning' then 2 when 'recovery' then 3 else 4 end` -/
def urgency (r : OutboxRow) : ℕ :=
  match r.severity with
  | .critical => 1
  | .warning => 2
  | .recovery => 3
  | .info => 4

/-- The order in which rows are taken. -/
def claimedBefore (r r' : OutboxRow) : Bool :=
  r.urgency < r'.urgency || (r.urgency = r'.urgency && !r'.precedes r)

end OutboxRow

/-- The reasons of a suppression that is for good. -/
def permanentReasons : List String :=
  ["signal_recovered_before_delivery", "signal_deescalated_before_delivery",
    "backup_policy_disabled", "superseded_by_new_incident"]

namespace Board

/-- The row belongs to the present episode of an active signal. -/
def current (b : Board) (r : OutboxRow) : Bool :=
  (r.signalKey.bind b.signal?).any fun s => s.active && s.openedAt ≤ r.occurredAt

/-- The row is older than the present episode of an active signal. -/
def superseded (b : Board) (r : OutboxRow) : Bool :=
  (r.signalKey.bind b.signal?).any fun s => s.active && r.occurredAt < s.openedAt

/-- An announcement of the signal has been sent, as the claim sees it. -/
def announced (b : Board) (r : OutboxRow) : Bool :=
  b.outbox.any fun d =>
    d.signalKey = r.signalKey && d.transition.announces && d.status = .sent &&
      d.occurredAt ≤ r.occurredAt &&
      match r.signalKey.bind b.signal? with
      | none => true
      | some s => s.openedAt ≤ d.occurredAt || r.occurredAt < s.openedAt

/-- A suppressed announcement of the present episode that is not suppressed for good. -/
def revivable (b : Board) (r : OutboxRow) : Bool :=
  r.status = .suppressed && r.transition.announces && b.current r &&
    r.suppressionReason.any (· ∉ permanentReasons)

/-- The latest of them for its signal. -/
def latestSuppressed (b : Board) (r : OutboxRow) : Bool :=
  b.revivable r && b.outbox.all fun r' =>
    !(b.revivable r' && r'.signalKey = r.signalKey && r.precedes r')

/-- The row may be taken: it is due, and no undelivered row of its signal precedes it. -/
def claimable (b : Board) (now : ℤ) (r : OutboxRow) : Bool :=
  r.status.waiting && r.nextAttemptAt ≤ now &&
    (r.signalKey.isNone || b.outbox.all fun r' =>
      !(r'.signalKey = r.signalKey && r'.id ≠ r.id && r'.status.undelivered && r'.precedes r))

/-- The rows a claim takes. -/
def picked (b : Board) (now : ℤ) (limit : ℕ) : List OutboxRow :=
  (orderBy OutboxRow.claimedBefore (b.outbox.filter (b.claimable now))).take limit

end Board

/-! ## The stages of a claim -/

section

variable (e : Env) (b : Board)

/-- Claims that have timed out are given back. -/
def expireClaims : Except DbError Board :=
  b.updateOutbox (OutboxRow.timedOut e.now) (OutboxRow.expire e.now)

/-- Suppressions that have started meanwhile. -/
def suppressBlocked : Except DbError Board :=
  b.updateOutbox (fun r => r.status.waiting && (r.blockReason e).isSome)
    fun r => r.suppress ((r.blockReason e).getD "")

/-- Announcements of episodes that are over. -/
def withdrawEnded : Except DbError Board :=
  b.updateOutbox
    (fun r => r.status.waiting && r.signalKey.isSome && r.transition.announces && !b.current r)
    (OutboxRow.suppress "signal_recovered_before_delivery")

/-- Recoveries of episodes that were never announced. -/
def withdrawUnannounced : Except DbError Board :=
  b.updateOutbox
    (fun r => r.status.waiting && r.signalKey.isSome && r.transition = .recovered &&
      !b.announced r)
    fun r => r.suppress
      (if b.superseded r then "superseded_by_new_incident" else "recovered_before_first_delivery")

/-- The announcements nothing suppresses any longer. -/
def releaseSuppressed : Except DbError Board :=
  b.updateOutbox (fun r => b.latestSuppressed r && (r.blockReason e).isNone)
    (OutboxRow.release e.now)

/-- The rows are taken. -/
def takeRows (token : Uuid) (picked : List OutboxRow) : Except DbError Board :=
  b.updateOutbox (fun r => r.id ∈ picked.map (·.id)) (OutboxRow.claim token e.now)

/-- The state in which suppressed rows are put back. -/
def prepareRelease : Except DbError Board := do
  let b ← expireClaims e b
  let b ← suppressBlocked e b
  let b ← withdrawEnded b
  withdrawUnannounced b

/-- `claim_notification_outbox_v1` -/
def claimNotificationOutbox (token : Option Uuid) (limit : Option ℤ) :
    Except DbError (List OutboxRow × Board) := do
  let token ← orRaise token (.raised "notification_claim_invalid" "22023")
  let limit ← orRaise (limit.filter fun n => 1 ≤ n && n ≤ 20)
    (.raised "notification_claim_invalid" "22023")
  if !e.settings.channelReady then return ([], b)
  else
    let b ← prepareRelease e b
    let b ← releaseSuppressed e b
    let picked := b.picked e.now limit.toNat
    let b ← takeRows e b token picked
    return (orderBy (fun r r' => !r'.precedes r) (b.outbox.filter (·.id ∈ picked.map (·.id))), b)

end

/-! ## The rows of a dispatcher -/

/-- What a dispatcher is told. -/
inductive DeliveryAnswer
  | claimMismatch
  | moved (s : DeliveryStatus)
  deriving DecidableEq

/-- The row is in the hands of the dispatcher with the token. -/
def OutboxRow.heldBy (id : ℤ) (token : Uuid) (r : OutboxRow) : Bool :=
  (r.id : ℤ) = id && r.status = .sending && r.claimToken = some token

/-- `select … where id = p_id and status = 'sending' and claim_token = p_claim_token` -/
def Board.held? (b : Board) (id : ℤ) (token : Uuid) : Option OutboxRow :=
  b.outbox.find? (OutboxRow.heldBy id token)

/-- Why the row is not to be sent on account of its signal. -/
def Board.signalBlock (b : Board) (r : OutboxRow) : Option String :=
  match r.signalKey with
  | none => none
  | some k =>
    let s := b.signal? k
    if r.transition.announces then
      if s.all fun s => !s.active || r.occurredAt < s.openedAt then
        some "signal_recovered_before_delivery"
      else none
    else if r.transition = .recovered then
      if s.any fun s => r.occurredAt < s.openedAt then some "superseded_by_new_incident"
      else if b.outbox.any fun d =>
          d.signalKey = some k && d.transition.announces && d.status = .sent &&
            s.all (·.openedAt ≤ d.occurredAt) && d.occurredAt ≤ r.occurredAt then none
      else some "recovered_before_first_delivery"
    else none

/-- `notification_delivery_block_reason_v1` -/
def notificationDeliveryBlockReason (e : Env) (id : Option ℤ) (token : Option Uuid) (b : Board) :
    Option String :=
  match id.filter (1 ≤ ·), token with
  | some id, some token =>
    match b.held? id token with
    | none => some "claim_mismatch"
    | some r =>
      if !e.settings.channelReady then some "channel_disabled_during_dispatch"
      else (r.blockReason e).or (b.signalBlock r)
  | _, _ => some "claim_mismatch"

/-- `suppress_notification_delivery_v1` -/
def suppressNotificationDelivery (id : Option ℤ) (token : Option Uuid) (reason : Option String)
    (b : Board) : Except DbError (DeliveryAnswer × Board) := do
  let id ← orRaise (id.filter (1 ≤ ·)) (.raised "notification_suppress_delivery_invalid" "22023")
  let token ← orRaise token (.raised "notification_suppress_delivery_invalid" "22023")
  let reason ← orRaise (reason.filter (Text.lengthBetween 1 256))
    (.raised "notification_suppress_delivery_invalid" "22023")
  match b.held? id token with
  | none => return (.claimMismatch, b)
  | some _ =>
    let b ← b.updateOutbox (OutboxRow.heldBy id token) (OutboxRow.suppress reason)
    return (.moved .suppressed, b)

/-- What a dispatcher reports of a delivery. -/
structure DeliveryReport where
  success : Option Bool
  httpStatus : Option ℤ
  externalDeliveryId : Option String
  errorCode : Option String
  deriving DecidableEq

/-- The limits of a report. -/
def DeliveryReport.limitsOk (p : DeliveryReport) : Bool :=
  (p.httpStatus.all fun n => 100 ≤ n && n ≤ 599) && p.externalDeliveryId.all (·.length ≤ 128) &&
    p.errorCode.all (·.length ≤ 128)

/-- The seconds until the next attempt. -/
def backoffSeconds (attempts : ℕ) : ℤ := min 1800 (60 * 2 ^ (attempts - 1))

namespace OutboxRow

/-- Delivered. -/
def deliver (p : DeliveryReport) (now : ℤ) (r : OutboxRow) : OutboxRow :=
  { r with
    status := .sent
    sentAt := some now
    externalDeliveryId := p.externalDeliveryId
    lastHttpStatus := p.httpStatus
    lastErrorCode := none
    claimToken := none
    claimedAt := none }

/-- The status after a failed attempt. -/
def failedStatus (r : OutboxRow) : DeliveryStatus := if 5 ≤ r.attempts then .failed else .retry

/-- Not delivered at this attempt. -/
def fail (p : DeliveryReport) (now : ℤ) (r : OutboxRow) : OutboxRow :=
  { r with
    status := r.failedStatus
    nextAttemptAt :=
      if 5 ≤ r.attempts then r.nextAttemptAt else now + backoffSeconds r.attempts * second
    lastHttpStatus := p.httpStatus
    lastErrorCode := some (p.errorCode.getD "delivery_failed")
    claimToken := none
    claimedAt := none }

end OutboxRow

/-- `complete_notification_delivery_v1` -/
def completeNotificationDelivery (e : Env) (id : Option ℤ) (token : Option Uuid)
    (p : DeliveryReport) (b : Board) : Except DbError (DeliveryAnswer × Board) := do
  let id ← orRaise (id.filter (1 ≤ ·)) (.raised "notification_complete_invalid" "22023")
  let token ← orRaise token (.raised "notification_complete_invalid" "22023")
  let success ← orRaise p.success (.raised "notification_complete_invalid" "22023")
  raiseIf (!p.limitsOk) (.raised "notification_complete_invalid" "22023")
  match b.held? id token with
  | none => return (.claimMismatch, b)
  | some r =>
    if success then
      let b ← b.updateOutbox (fun r => (r.id : ℤ) = id) (OutboxRow.deliver p e.now)
      return (.moved .sent, b)
    else
      let b ← b.updateOutbox (fun r => (r.id : ℤ) = id) (OutboxRow.fail p e.now)
      return (.moved r.failedStatus, b)

/-- What switching the channel off does to the outbox. -/
def suppressOutbox (reason : String) (b : Board) : Except DbError Board :=
  b.updateOutbox (·.status.undelivered) (OutboxRow.suppress reason)

end IvrmDashboard.Notifications
